import Corvus.Api.RequestId
import Corvus.Auth.ApiKeyRefinement
import Corvus.Auth.JwtValidator
import Corvus.Auth.Middleware
import Corvus.Gateway.ClientKey
import Corvus.Gateway.RequestSizeLimit

/-!
# The server

A request passes the advices that are registered in `main`, in their order: it is
given its id, its declared size is checked, the rate limiter is asked, it is
routed, the size of its body is checked, its credentials are checked, its handler
runs and the response is sent.  Any number of processes serve any number of
requests at once; each has a rate limiter of its own, and all of them share Redis
and Postgres.  The cached resources and the cached API keys lie in one Redis.

A step of a request is one access to what it shares with others, so that requests
interleave at these points.
-/

namespace Corvus.Server

open Corvus.Api Corvus.Auth Corvus.Db Corvus.Gateway Corvus.Resources

/-! ## What `main` sets up -/

/-- What the router finds for a request: a handler, or none and the status of the
answer. -/
inductive Target where
  | resource (route : ResourceRoute) (id : String)
  | health
  | ready
  | notFound

/-- What the server takes from its libraries and its environment. -/
structure Deployment where
  sha256 : String → List UInt8
  tokens : JwtLibrary
  /-- `CORVUS_JWT_PUBLIC_KEY`. -/
  publicKeyPem : String
  /-- `CORVUS_TRUSTED_PROXIES`, as it is parsed. -/
  proxies : List String
  router : HttpRequest → Except Nat Target

/-- The server is set up with the default limits. -/
def sizeLimit : RequestSizeLimitConfig := {}

def rateLimit : RateLimitConfig := {}

/-! ## Requests -/

/-- A request as it reaches a process: what the handlers read of it, and what only the
advices do. -/
structure Incoming where
  process : Nat
  request : HttpRequest
  /-- `X-Request-ID`. -/
  idHeader : String := ""
  /-- `Content-Length`. -/
  contentLength : String := ""
  peer : String := ""
  /-- `X-Forwarded-For`. -/
  forwardedFor : String := ""

/-- Where a request stands.  What an answer was made of is kept for stating results. -/
inductive ServerPhase (platform : Platform) where
  | arrived
  | limited (key : String)
  | routed (target : Target)
  | validating (target : Target) (check : ValidateCall)
  | handling (target : Target)
  | serving (call : Resources.Call platform) (answer : Outcome → Response)
  | answered (response : Response) (served : Option (Request × Outcome))

/-- A request in progress; `request` is what the advices have made of it so far.  The
last field records which call of the rate limiter let it through or refused it. -/
structure ServerCall (platform : Platform) where
  incoming : Incoming
  request : HttpRequest
  phase : ServerPhase platform
  ticket : Option Nat := none

/-- What all requests share: the limiter and the idle connections of each process, one
Redis and one Postgres.  The fields for lookups, commits and returned writes and for the
calls of each limiter with their answers record, for stating results, what has
happened. -/
structure ServerShared (platform : Platform) where
  limiters : Nat → RateLimiter
  limiterCalls : Nat → List ((ℚ × Gateway.Call) × Gateway.Answer)
  redis : Redis
  idle : Nat → List Connection
  lookups : List (String × LookupOutcome)
  database : Database platform
  commits : List (Commit platform)
  returned : List Nat

namespace ServerShared

variable {platform : Platform}

/-- What the validators see. -/
def keys (shared : ServerShared platform) : KeyService where
  redis := shared.redis
  idle := shared.idle
  lookups := shared.lookups

/-- What the resource service sees. -/
def store (shared : ServerShared platform) : Store platform where
  redis := shared.redis
  database := shared.database
  commits := shared.commits
  returned := shared.returned

def withKeys (shared : ServerShared platform) (keys : KeyService) : ServerShared platform :=
  { shared with redis := keys.redis, idle := keys.idle, lookups := keys.lookups }

def withStore (shared : ServerShared platform) (store : Store platform) :
    ServerShared platform :=
  { shared with
    redis := store.redis
    database := store.database
    commits := store.commits
    returned := store.returned }

/-- `allow`, on the limiter of a process. -/
def allow (shared : ServerShared platform) (process : Nat) (now : ℚ) (key : String) :
    Bool × ServerShared platform :=
  let asked := (shared.limiters process).allow now key
  (asked.1,
    { shared with
      limiters := Function.update shared.limiters process asked.2
      limiterCalls := Function.update shared.limiterCalls process
        (shared.limiterCalls process ++ [((now, .allow key), .allowed asked.1)]) })

end ServerShared

/-- What a step leaves open: the random numbers, the clocks, what Redis, Postgres and the
token library answer. -/
structure ServerChoice where
  draws : Draws := ⟨0, 0, 0, 0, 0, 0⟩
  steady : ℚ := 0
  keys : Auth.Answer := {}
  service : Choice
  postgresUp : Bool := true
  redisUp : Bool := true

/-! ## Handlers and answers of the gateway -/

/-- `health_handler`. -/
def healthHandler (request : HttpRequest) : Response :=
  respondOk (.object [("path", .string request.path), ("status", .string "ok"),
    ("version", .string "0.1.0")]) request.info

/-- `readiness_handler`, for what the two checks find. -/
def readinessHandler (postgresUp redisUp : Bool) (request : HttpRequest) : Response :=
  let response :=
    if postgresUp && redisUp then
      respondOk (.object [("checks", .object [("postgres", .string "ok"),
        ("redis", .string "ok")]), ("status", .string "ready")]) request.info
    else
      respondError .serviceUnavailable "One or more dependencies are unavailable." request.info
  response.addHeader "X-Request-ID" request.requestId

/-- `not_found_handler`. -/
def notFoundHandler (request : HttpRequest) : Response :=
  respondError .notFound ("The request path '" ++ request.path ++ "' does not exist") request.info

/-- The custom error handler, for the status of a request that has no handler. -/
def customError (status : Nat) (request : HttpRequest) : Response :=
  let response :=
    if status = 404 then
      respondError .notFound "The requested resource does not exist." request.info
    else if status = 405 then respondError .badRequest "Method not allowed." request.info
    else unexpected request
  response.addHeader "X-Request-ID" request.requestId

/-- The advice after a handler. -/
def postHandling (request : HttpRequest) (response : Response) : Response :=
  response.addHeader "X-Request-ID" request.requestId

/-! ## The steps of a request -/

namespace ServerCall

variable {platform : Platform}

def goTo (call : ServerCall platform) (phase : ServerPhase platform) : ServerCall platform :=
  { call with phase }

/-- Answer without the service. -/
def respond (call : ServerCall platform) (response : Response) : ServerCall platform :=
  call.goTo (.answered response none)

/-- The request with its id, before any credentials are looked at. -/
def identified (call : ServerCall platform) (draws : Draws) : ServerCall platform :=
  { call with
    request := { call.incoming.request with
      clientId := ""
      requestId := getRequestId "" call.incoming.idHeader draws } }

/-- The key the request counts under. -/
def clientKey (deployment : Deployment) (call : ServerCall platform) : String :=
  clientKeyFromRequest deployment.proxies call.incoming.peer call.incoming.forwardedFor

/-- Route a request that has passed the advices before. -/
def route (deployment : Deployment) (call : ServerCall platform) : ServerCall platform :=
  match deployment.router call.request with
  | .ok target => call.goTo (.routed target)
  | .error status => call.respond (customError status call.request)

/-- The end of the authentication: reject the request, or let it through to its handler. -/
def authenticated (deployment : Deployment) (call : ServerCall platform) (target : Target)
    (checkKey : KeyCheck) (systemNow : Int) : ServerCall platform :=
  match authAdvice (JwtValidator.validate deployment.tokens deployment.publicKeyPem systemNow)
      checkKey call.request with
  | .respond response => call.respond response
  | .next request => { call with request, phase := .handling target }

/-- One step of a request. -/
def step (deployment : Deployment) (call : ServerCall platform) (choice : ServerChoice)
    (shared : ServerShared platform) : Option (ServerCall platform × ServerShared platform) :=
  match call.phase with
  | .arrived =>
      let call := call.identified choice.draws
      match declaredSizeAdvice sizeLimit call.incoming.contentLength call.request with
      | some response => some (call.respond response, shared)
      | none =>
          if call.request.path = "/health" ∨ call.request.path = "/ready" then
            some (call.route deployment, shared)
          else
            let key := call.clientKey deployment
            let asked := shared.allow call.incoming.process choice.steady key
            let call := { call with
              ticket := some (shared.limiterCalls call.incoming.process).length }
            if asked.1 then some (call.route deployment, asked.2)
            else some (call.goTo (.limited key), asked.2)
  | .limited key =>
      some (call.respond (tooManyRequests (shared.limiters call.incoming.process) choice.steady
        key call.request.info), shared)
  | .routed target =>
      match bodySizeAdvice sizeLimit call.request with
      | some response => some (call.respond response, shared)
      | none =>
          if "/v1/".toList.isPrefixOf call.request.path.toList ∧ call.request.apiKey ≠ "" then
            some (call.goTo (.validating target ((validation deployment.sha256).enter
              { validator := call.incoming.process, rawKey := call.request.apiKey }
              shared.keys)), shared)
          else
            -- without an API key its check is not called
            some (call.authenticated deployment target (fun _ => .error (.validation ""))
              choice.keys.systemNow, shared)
  | .validating target check =>
      match check.phase with
      | .done outcome =>
          some (call.authenticated deployment target (fun _ => outcome) choice.keys.systemNow,
            shared)
      | _ =>
          match check.step deployment.sha256 choice.keys shared.keys with
          | none => none
          | some (next, after) =>
              some (call.goTo (.validating target next), shared.withKeys after)
  | .handling target =>
      match target with
      | .resource route id =>
          match route.handle platform call.request id with
          | .respond response =>
              some (call.respond (postHandling call.request response), shared)
          | .invoke request answer =>
              some (call.goTo (.serving ((resourceService platform).enter request shared.store)
                answer), shared)
      | .health =>
          some (call.respond (postHandling call.request (healthHandler call.request)), shared)
      | .ready =>
          some (call.respond (postHandling call.request
            (readinessHandler choice.postgresUp choice.redisUp call.request)), shared)
      | .notFound =>
          some (call.respond (postHandling call.request (notFoundHandler call.request)), shared)
  | .serving inner answer =>
      match inner.phase with
      | .done outcome =>
          some (call.goTo (.answered (postHandling call.request (answer outcome))
            (some (inner.request, outcome))), shared)
      | _ =>
          match inner.step choice.service shared.store with
          | none => none
          | some (next, after) =>
              some (call.goTo (.serving next answer), shared.withStore after)
  | .answered _ _ => none

end ServerCall

/-! ## The system -/

/-- Everything is as it is after the start of the processes, with any database. -/
def ServerShared.Fresh {platform : Platform} (shared : ServerShared platform) : Prop :=
  (∀ process, ∃ start, shared.limiters process = RateLimiter.construct rateLimit start) ∧
    shared.limiterCalls = (fun _ => []) ∧ shared.keys = .fresh ∧ shared.commits = [] ∧
    shared.returned = []

/-- The requests of any number of processes that share one Redis and one Postgres.
Besides them, time passes, and others write or remove entries of Redis. -/
def server (platform : Platform) (deployment : Deployment) :
    Component (ServerShared platform) Incoming (ServerCall platform) ServerChoice
      RedisHappening where
  initial := ServerShared.Fresh
  enter incoming _ := { incoming, request := incoming.request, phase := .arrived }
  step call choice shared := call.step deployment choice shared
  happen happening shared := some { shared with redis := happening.apply shared.redis }

abbrev ServerState (platform : Platform) := Concurrent (ServerShared platform) (ServerCall platform)
abbrev ServerEvent := ConcurrentEvent Incoming ServerChoice RedisHappening

/-! ## What a step does -/

variable {platform : Platform} {deployment : Deployment} {call next : ServerCall platform}
  {choice : ServerChoice} {shared after : ServerShared platform}

/-- What the credentials of a request are decided with: no API key to check, or the
outcome of the check. -/
inductive Decided (call : ServerCall platform) (target : Target) : KeyCheck → Prop where
  | unasked (checkKey : KeyCheck) (phaseEq : call.phase = .routed target)
      (none : ¬("/v1/".toList.isPrefixOf call.request.path.toList ∧ call.request.apiKey ≠ "")) :
      Decided call target checkKey
  | checked {check : ValidateCall} {outcome : Except ApiKeyError ApiKeyInfo}
      (phaseEq : call.phase = .validating target check) (ended : check.phase = .done outcome) :
      Decided call target fun _ => outcome

/-- What one step of a request can do. -/
inductive ServerStep (deployment : Deployment) (call : ServerCall platform)
    (choice : ServerChoice) (shared : ServerShared platform) :
    ServerCall platform → ServerShared platform → Prop where
  | declaredTooLarge {response : Response} (phaseEq : call.phase = .arrived)
      (refused : declaredSizeAdvice sizeLimit call.incoming.contentLength
        (call.identified choice.draws).request = some response) :
      ServerStep deployment call choice shared
        ((call.identified choice.draws).respond response) shared
  | uncounted (phaseEq : call.phase = .arrived)
      (fits : declaredSizeAdvice sizeLimit call.incoming.contentLength
        (call.identified choice.draws).request = none) :
      ServerStep deployment call choice shared
        ((call.identified choice.draws).route deployment) shared
  | counted {next : ServerCall platform} (phaseEq : call.phase = .arrived)
      (nextEq : next = if (shared.allow call.incoming.process choice.steady
          (call.clientKey deployment)).1
        then { call.identified choice.draws with
          ticket := some (shared.limiterCalls call.incoming.process).length }.route deployment
        else { call.identified choice.draws with
          ticket := some (shared.limiterCalls call.incoming.process).length }.goTo
            (.limited (call.clientKey deployment)))
      (fits : declaredSizeAdvice sizeLimit call.incoming.contentLength
        (call.identified choice.draws).request = none) :
      ServerStep deployment call choice shared next
        (shared.allow call.incoming.process choice.steady (call.clientKey deployment)).2
  | refused {key : String} (phaseEq : call.phase = .limited key) :
      ServerStep deployment call choice shared
        (call.respond (tooManyRequests (shared.limiters call.incoming.process) choice.steady
          key call.request.info)) shared
  | bodyTooLarge {target : Target} {response : Response} (phaseEq : call.phase = .routed target)
      (refused : bodySizeAdvice sizeLimit call.request = some response) :
      ServerStep deployment call choice shared (call.respond response) shared
  | asked {target : Target} (phaseEq : call.phase = .routed target)
      (fits : bodySizeAdvice sizeLimit call.request = none)
      (needsCheck : "/v1/".toList.isPrefixOf call.request.path.toList = true)
      (hasKey : call.request.apiKey ≠ "") :
      ServerStep deployment call choice shared
        (call.goTo (.validating target ((validation deployment.sha256).enter
          { validator := call.incoming.process, rawKey := call.request.apiKey } shared.keys)))
        shared
  | decided {target : Target} {checkKey : KeyCheck} (decided : Decided call target checkKey)
      (fits : call.phase = .routed target → bodySizeAdvice sizeLimit call.request = none) :
      ServerStep deployment call choice shared
        (call.authenticated deployment target checkKey choice.keys.systemNow) shared
  | validated {target : Target} {check moved : ValidateCall} {keys : KeyService}
      (phaseEq : call.phase = .validating target check)
      (stepped : check.step deployment.sha256 choice.keys shared.keys = some (moved, keys)) :
      ServerStep deployment call choice shared (call.goTo (.validating target moved))
        (shared.withKeys keys)
  | handled {target : Target} {response : Response} (phaseEq : call.phase = .handling target)
      (ofHandler : (∃ route id, target = .resource route id ∧
          route.handle platform call.request id = .respond response) ∨
        (target = .health ∧ response = healthHandler call.request) ∨
        (target = .ready ∧
          response = readinessHandler choice.postgresUp choice.redisUp call.request) ∨
        response = notFoundHandler call.request) :
      ServerStep deployment call choice shared
        (call.respond (postHandling call.request response)) shared
  | invoked {route : ResourceRoute} {id : String} {request : Request}
      {answer : Outcome → Response} (phaseEq : call.phase = .handling (.resource route id))
      (invokes : route.handle platform call.request id = .invoke request answer) :
      ServerStep deployment call choice shared
        (call.goTo (.serving ((resourceService platform).enter request shared.store) answer))
        shared
  | served {inner moved : Resources.Call platform} {answer : Outcome → Response}
      {store : Store platform} (phaseEq : call.phase = .serving inner answer)
      (stepped : inner.step choice.service shared.store = some (moved, store)) :
      ServerStep deployment call choice shared (call.goTo (.serving moved answer))
        (shared.withStore store)
  | finished {inner : Resources.Call platform} {answer : Outcome → Response} {outcome : Outcome}
      (phaseEq : call.phase = .serving inner answer) (ended : inner.phase = .done outcome) :
      ServerStep deployment call choice shared
        (call.goTo (.answered (postHandling call.request (answer outcome))
          (some (inner.request, outcome)))) shared

theorem ServerStep.of_step (stepped : call.step deployment choice shared = some (next, after)) :
    ServerStep deployment call choice shared next after := by
  unfold ServerCall.step at stepped
  cases phaseEq : call.phase <;> simp only [phaseEq] at stepped
  case arrived =>
    split at stepped
    · rename_i response refused
      cases stepped
      exact .declaredTooLarge phaseEq refused
    · rename_i fits
      split at stepped
      · cases stepped
        exact .uncounted phaseEq fits
      · split at stepped <;> cases stepped
        · rename_i granted
          exact .counted phaseEq (if_pos granted).symm fits
        · rename_i notGranted
          exact .counted phaseEq (if_neg notGranted).symm fits
  case limited key =>
    cases stepped
    exact .refused phaseEq
  case routed target =>
    split at stepped
    · rename_i response refused
      cases stepped
      exact .bodyTooLarge phaseEq refused
    · rename_i fits
      split at stepped <;> cases stepped
      · rename_i needed
        exact .asked phaseEq fits needed.1 needed.2
      · rename_i notNeeded
        exact .decided (.unasked _ phaseEq notNeeded) fun _ => fits
  case validating target check =>
    split at stepped
    · rename_i outcome ended
      cases stepped
      exact .decided (.checked phaseEq ended) fun routed => by rw [phaseEq] at routed; cases routed
    · split at stepped
      · cases stepped
      · rename_i moved keys checkStepped
        cases stepped
        exact .validated phaseEq checkStepped
  case handling target =>
    cases target with
    | resource route id =>
        simp only at stepped
        split at stepped
        · rename_i response responds
          cases stepped
          exact .handled phaseEq (Or.inl ⟨route, id, rfl, responds⟩)
        · rename_i request answer invokes
          cases stepped
          exact .invoked phaseEq invokes
    | health =>
        cases stepped
        exact .handled phaseEq (Or.inr (Or.inl ⟨rfl, rfl⟩))
    | ready =>
        cases stepped
        exact .handled phaseEq (Or.inr (Or.inr (Or.inl ⟨rfl, rfl⟩)))
    | notFound =>
        cases stepped
        exact .handled phaseEq (Or.inr (Or.inr (Or.inr rfl)))
  case serving inner answer =>
    split at stepped
    · rename_i outcome ended
      cases stepped
      exact .finished phaseEq ended
    · split at stepped
      · cases stepped
      · rename_i moved store innerStepped
        cases stepped
        exact .served phaseEq innerStepped
  case answered => cases stepped

/-! ## A small server -/

/-- A token library that decodes nothing. -/
def noTokens : JwtLibrary where
  Token := Empty
  decode _ := .error "invalid token supplied"
  hasExpiresAt token := nomatch token
  verify _ _ token := nomatch token
  subject token := nomatch token
  issuer token := nomatch token
  payloadClaim token := nomatch token

/-- A deployment that knows one resource, and one route for it. -/
def sampleDeployment : Deployment where
  sha256 _ := digestOfK
  tokens := noTokens
  publicKeyPem := ""
  proxies := []
  router request :=
    if request.method = "DELETE" then .ok (.resource .remove sampleIdText) else .error 404

/-- Nothing has happened yet in any process. -/
def sampleShared : ServerShared Platform.reference where
  limiters _ := RateLimiter.construct rateLimit 0
  limiterCalls _ := []
  redis := .empty
  idle := KeyService.fresh.idle
  lookups := []
  database := sampleStore.database
  commits := []
  returned := []

theorem sampleShared_fresh : sampleShared.Fresh :=
  ⟨fun _ => ⟨0, rfl⟩, rfl, rfl, rfl, rfl⟩

/-- A request to delete the resource, with an API key. -/
def deletingRequest : Incoming where
  process := 0
  request :=
    { method := "DELETE", path := "/v1/resources/" ++ sampleIdText, apiKey := "k" }
  peer := "10.0.0.1"

/-- What Postgres knows of the key. -/
def sampleRecord : ApiKeyRecord :=
  { clientId := sampleClientText, scopes := "read write", expiresAt := none }

/-- What a step of the request finds: Redis does not open connections for the
validator, so that only the lookup counts. -/
def deletingChoice (lookup : LookupOutcome := .ok (some sampleRecord)) : ServerChoice where
  keys := { fault := .broken, connects := false, lookup }
  service := sampleChoice

/-- The request on its way through a process. -/
def deleting : List ServerEvent :=
  .start 0 deletingRequest :: List.replicate 13 (.advance 0 deletingChoice)

def deletingState : ServerState Platform.reference :=
  (server Platform.reference sampleDeployment).replay sampleShared deleting

end Corvus.Server
